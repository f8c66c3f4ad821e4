/-
  `Foundation.ProtoWire`: the proto3 wire format.

  A message is a sequence of fields, each a tag and a value.  Varints are base
  128, low group first; fixed-width numbers are little-endian; strings and
  messages inside a message are preceded by their length.  A scalar field that is
  zero, and a string that is empty, are not written.

  A parser goes through the fields in the order they come, and what it read
  before an error stays in the message.  `Parses` says that an input is accepted,
  and it has one rule for each kind of field that a writer writes.
-/
import AppChat.Foundation.Bytes

set_option autoImplicit false

namespace AppChat.Foundation.ProtoWire

/-! ## Varints -/

/-- The varint of `n` in at most `k` bytes. -/
def varintBytes : Nat → Nat → Bytes
  | 0, _ => []
  | k + 1, n =>
      if n < 128 then [UInt8.ofNat n]
      else UInt8.ofNat (n % 128 + 128) :: varintBytes k (n / 128)

/-- The number of those bytes. -/
def varintSize : Nat → Nat → Nat
  | 0, _ => 0
  | k + 1, n => if n < 128 then 1 else 1 + varintSize k (n / 128)

/-- Read a varint of at most `k` bytes. -/
def readVarint : Nat → Bytes → Option (Nat × Bytes)
  | 0, _ => none
  | _ + 1, [] => none
  | k + 1, b :: bs =>
      if b.toNat < 128 then some (b.toNat, bs)
      else (readVarint k bs).map fun r => (b.toNat - 128 + 128 * r.1, r.2)

theorem toNat_ofNat_of_lt {n : Nat} (h : n < 256) : (UInt8.ofNat n).toNat = n := by
  rw [UInt8.toNat_ofNat']
  exact Nat.mod_eq_of_lt h

theorem readVarint_varintBytes (k : Nat) {n : Nat} (h : n < 128 ^ (k + 1)) (rest : Bytes) :
    readVarint (k + 1) (varintBytes (k + 1) n ++ rest) = some (n, rest) := by
  induction k generalizing n with
  | zero =>
      have hn : n < 128 := by simpa using h
      simp [varintBytes, hn, readVarint, toNat_ofNat_of_lt (show n < 256 by omega)]
  | succ k ih =>
      rw [varintBytes]
      split
      · rename_i hn
        simp [readVarint, hn, toNat_ofNat_of_lt (show n < 256 by omega)]
      · rename_i hn
        have hbyte := toNat_ofNat_of_lt (show n % 128 + 128 < 256 by omega)
        have hdiv : n / 128 < 128 ^ (k + 1) := by
          rw [Nat.div_lt_iff_lt_mul (by omega), ← pow_succ]
          exact h
        rw [List.cons_append, readVarint, hbyte, if_neg (by omega), ih hdiv, Option.map_some]
        have hvalue : n % 128 + 128 - 128 + 128 * (n / 128) = n := by omega
        rw [hvalue]

theorem length_varintBytes (k n : Nat) : (varintBytes k n).length = varintSize k n := by
  induction k generalizing n with
  | zero => rfl
  | succ k ih =>
      rw [varintBytes, varintSize]
      split
      · rfl
      · rw [List.length_cons, ih, Nat.add_comm]

/-! ## Little-endian numbers -/

/-- The low `k` bytes of a number, the lowest first. -/
def littleEndian : Nat → Nat → Bytes
  | 0, _ => []
  | k + 1, n => UInt8.ofNat (n % 256) :: littleEndian k (n / 256)

/-- The number with these bytes, the lowest first. -/
def ofLittleEndian : Bytes → Nat
  | [] => 0
  | b :: bs => b.toNat + 256 * ofLittleEndian bs

@[simp] theorem length_littleEndian (k n : Nat) : (littleEndian k n).length = k := by
  induction k generalizing n with
  | zero => rfl
  | succ k ih => rw [littleEndian, List.length_cons, ih]

theorem ofLittleEndian_littleEndian {k n : Nat} (h : n < 256 ^ k) :
    ofLittleEndian (littleEndian k n) = n := by
  induction k generalizing n with
  | zero =>
      have hn : n = 0 := by simpa using h
      rw [hn]
      rfl
  | succ k ih =>
      have hdiv : n / 256 < 256 ^ k := by
        rw [Nat.div_lt_iff_lt_mul (by omega), ← pow_succ]
        exact h
      rw [littleEndian, ofLittleEndian, ih hdiv, toNat_ofNat_of_lt (by omega)]
      omega

/-! ## Signed numbers -/

/-- An `int32` travels as the varint of its sign extension to 64 bits. -/
def int32Varint (v : Int32) : Nat := (v.toInt % 2 ^ 64).toNat

theorem int32Varint_lt (v : Int32) : int32Varint v < 2 ^ 64 := by
  have h := Int.emod_lt_of_pos v.toInt (show (0 : Int) < 2 ^ 64 by decide)
  unfold int32Varint
  omega

/-- The reader keeps the low 32 bits. -/
theorem ofNat_int32Varint (v : Int32) : Int32.ofNat (int32Varint v) = v := by
  have hlow := Int32.le_toInt v
  have hhigh := Int32.toInt_lt v
  apply Int32.toInt_inj.mp
  rw [Int32.toInt_ofNat']
  have hsize : Int32.size = 2 ^ 32 := rfl
  simp only [int32Varint, Int.bmod, hsize]
  omega

/-! ## UTF-8 -/

/-- A continuation byte. -/
def isTail (b : UInt8) : Bool := 0x80 ≤ b && b ≤ 0xBF

/-- The second byte of a three-byte character: no overlong form, no surrogate. -/
def isSecondOfThree (first b : UInt8) : Bool :=
  isTail b && (first ≠ 0xE0 || 0xA0 ≤ b) && (first ≠ 0xED || b ≤ 0x9F)

/-- The second byte of a four-byte character: no overlong form, nothing above
U+10FFFF. -/
def isSecondOfFour (first b : UInt8) : Bool :=
  isTail b && (first ≠ 0xF0 || 0x90 ≤ b) && (first ≠ 0xF4 || b ≤ 0x8F)

/-- Well-formed UTF-8. -/
def validUtf8 : Bytes → Bool
  | [] => true
  | b₀ :: rest₀ =>
      if b₀ < 0x80 then validUtf8 rest₀
      else
        match rest₀ with
        | [] => false
        | b₁ :: rest₁ =>
            if 0xC2 ≤ b₀ && b₀ ≤ 0xDF then isTail b₁ && validUtf8 rest₁
            else
              match rest₁ with
              | [] => false
              | b₂ :: rest₂ =>
                  if 0xE0 ≤ b₀ && b₀ ≤ 0xEF then
                    isSecondOfThree b₀ b₁ && isTail b₂ && validUtf8 rest₂
                  else
                    match rest₂ with
                    | [] => false
                    | b₃ :: rest₃ =>
                        0xF0 ≤ b₀ && b₀ ≤ 0xF4 && isSecondOfFour b₀ b₁ && isTail b₂ &&
                          isTail b₃ && validUtf8 rest₃

/-! ## Reading fields -/

/-- Read a tag: a 32-bit varint of at most five bytes. -/
def readTag (input : Bytes) : Option (Nat × Bytes) :=
  (readVarint 5 input).map fun r => (r.1 % 2 ^ 32, r.2)

/-- Read the length of a string or a message; 2 GiB and more is refused. -/
def readSize (input : Bytes) : Option (Nat × Bytes) :=
  (readVarint 5 input).bind fun r => if r.1 < 2 ^ 31 then some r else none

/-- What reading the value of a field leads to. -/
inductive FieldResult (M : Type) where
  | next (msg : M) (rest : Bytes)
  | fail (msg : M)

/-- A field of the message type `M`: its tag, and how its value is read into the
message. -/
structure FieldReader (M : Type) where
  tag : Nat
  read : M → Bytes → FieldResult M

section Fields

variable {M S : Type}

/-- The reader of a `fixed32` field. -/
def fixed32Field (tag : Nat) (set : M → UInt32 → M) : FieldReader M where
  tag := tag
  read msg input :=
    if 4 ≤ input.length then
      .next (set msg (UInt32.ofNat (ofLittleEndian (input.take 4)))) (input.drop 4)
    else .fail msg

/-- The reader of a `fixed64` field. -/
def fixed64Field (tag : Nat) (set : M → UInt64 → M) : FieldReader M where
  tag := tag
  read msg input :=
    if 8 ≤ input.length then
      .next (set msg (UInt64.ofNat (ofLittleEndian (input.take 8)))) (input.drop 8)
    else .fail msg

/-- The reader of an `int32` field, which keeps the low 32 bits of the varint. -/
def int32Field (tag : Nat) (set : M → Int32 → M) : FieldReader M where
  tag := tag
  read msg input :=
    match readVarint 10 input with
    | some (n, rest) => .next (set msg (Int32.ofNat n)) rest
    | none => .fail msg

/-- The string is stored before its encoding is checked. -/
def stringField (tag : Nat) (set : M → Bytes → M) : FieldReader M where
  tag := tag
  read msg input :=
    match readSize input with
    | none => .fail msg
    | some (size, rest) =>
        if size ≤ rest.length then
          let s := rest.take size
          if validUtf8 s then .next (set msg s) (rest.drop size) else .fail (set msg s)
        else .fail msg

/-- The field is set first, and the parser `parse` of the inner message goes on
from the value that is there.  When the input ends early, what there is of the
message is parsed before the field fails. -/
def messageField (tag : Nat) (get : M → S) (set : M → S → M)
    (parse : S → Bytes → S × Bool) : FieldReader M where
  tag := tag
  read msg input :=
    match readSize input with
    | none => .fail (set msg (get msg))
    | some (size, rest) =>
        let inner := parse (get msg) (rest.take size)
        if size ≤ rest.length ∧ inner.2 = true then
          .next (set msg inner.1) (rest.drop size)
        else .fail (set msg inner.1)

end Fields

/-! ## Skipping unknown fields -/

/-- Skip the value of a field that is not a group. -/
def skipValue (tag : Nat) (input : Bytes) : Option Bytes :=
  match tag % 8 with
  | 0 => (readVarint 10 input).map (·.2)
  | 1 => if 8 ≤ input.length then some (input.drop 8) else none
  | 2 =>
      (readSize input).bind fun r =>
        if r.1 ≤ r.2.length then some (r.2.drop r.1) else none
  | 5 => if 4 ≤ input.length then some (input.drop 4) else none
  | _ => none

/-- Skip to the end of the groups that are open, innermost first; at most `depth`
may be open at once.  Every turn reads a tag. -/
def skipGroups (depth : Nat) : Nat → List Nat → Bytes → Option Bytes
  | _, [], input => some input
  | 0, _ :: _, _ => none
  | fuel + 1, open_ :: outer, input =>
      match readTag input with
      | none => none
      | some (tag, rest) =>
          if tag % 8 = 4 then
            if tag = open_ + 1 then skipGroups depth fuel outer rest else none
          else if tag / 8 = 0 then none
          else if tag % 8 = 3 then
            if outer.length + 1 < depth then
              skipGroups depth fuel (tag :: open_ :: outer) rest
            else none
          else
            (skipValue tag rest).bind fun rest' =>
              skipGroups depth fuel (open_ :: outer) rest'

/-- Skip the value of a field with the unknown tag `tag`. -/
def skipField (depth tag : Nat) (input : Bytes) : Option Bytes :=
  if tag / 8 = 0 then none
  else if tag % 8 = 3 then
    if 0 < depth then skipGroups depth input.length [tag] input else none
  else skipValue tag input

/-! ## Parsing a message -/

section Parse

variable {M : Type}

/-- Read fields into `msg` until the input ends.  A zero tag or the end of a
group where none is open fails.  Every turn reads a tag, so `fuel` need not
exceed the length of the input. -/
def parseFields (fields : List (FieldReader M)) (depth : Nat) : Nat → M → Bytes → M × Bool
  | _, msg, [] => (msg, true)
  | 0, msg, _ :: _ => (msg, false)
  | fuel + 1, msg, b :: bs =>
      match readTag (b :: bs) with
      | none => (msg, false)
      | some (tag, rest) =>
          match fields.find? (·.tag = tag) with
          | some field =>
              match field.read msg rest with
              | .next msg' rest' => parseFields fields depth fuel msg' rest'
              | .fail msg' => (msg', false)
          | none =>
              if tag % 8 = 4 ∨ tag = 0 then (msg, false)
              else
                match skipField depth tag rest with
                | some rest' => parseFields fields depth fuel msg rest'
                | none => (msg, false)

/-- Parse the whole input into the message `msg`. -/
def mergeFrom (fields : List (FieldReader M)) (depth : Nat) (msg : M) (input : Bytes) : M × Bool :=
  parseFields fields depth input.length msg input

/-- `msg` becomes `msg'` by parsing the whole of `input`. -/
def Parses (fields : List (FieldReader M)) (depth : Nat) (msg : M) (input : Bytes) (msg' : M) : Prop :=
  ∀ fuel, input.length ≤ fuel → parseFields fields depth fuel msg input = (msg', true)

theorem Parses.mergeFrom_eq {fields : List (FieldReader M)} {depth : Nat} {msg msg' : M}
    {input : Bytes} (h : Parses fields depth msg input msg') :
    mergeFrom fields depth msg input = (msg', true) :=
  h _ le_rfl

end Parse

/-! ## Writing fields -/

/-- A `fixed32` field; the default is not written. -/
def writeFixed32 (tag : Nat) (v : UInt32) : Bytes :=
  if v = 0 then [] else UInt8.ofNat tag :: littleEndian 4 v.toNat

/-- A `fixed64` field. -/
def writeFixed64 (tag : Nat) (v : UInt64) : Bytes :=
  if v = 0 then [] else UInt8.ofNat tag :: littleEndian 8 v.toNat

/-- An `int32` field. -/
def writeInt32 (tag : Nat) (v : Int32) : Bytes :=
  if v = 0 then [] else UInt8.ofNat tag :: varintBytes 10 (int32Varint v)

/-- A `string` field. -/
def writeString (tag : Nat) (s : Bytes) : Bytes :=
  if s = [] then [] else UInt8.ofNat tag :: (varintBytes 5 s.length ++ s)

/-- A message that is set is written even when it is empty. -/
def writeMessage (tag : Nat) (body : Bytes) : Bytes :=
  UInt8.ofNat tag :: (varintBytes 5 body.length ++ body)

/-! ### Sizes -/

/-- The size of a `fixed32` field with a tag of one byte. -/
def fixed32Size (v : UInt32) : Nat := if v = 0 then 0 else 1 + 4

/-- The size of a `fixed64` field. -/
def fixed64Size (v : UInt64) : Nat := if v = 0 then 0 else 1 + 8

/-- The size of an `int32` field. -/
def int32Size (v : Int32) : Nat := if v = 0 then 0 else 1 + varintSize 10 (int32Varint v)

/-- The size of a `string` field. -/
def stringSize (s : Bytes) : Nat :=
  if s = [] then 0 else 1 + (varintSize 5 s.length + s.length)

/-- The size of a message field, from the size of its body. -/
def messageSize (size : Nat) : Nat := 1 + (varintSize 5 size + size)

@[simp] theorem length_writeFixed32 (tag : Nat) (v : UInt32) :
    (writeFixed32 tag v).length = fixed32Size v := by
  unfold writeFixed32 fixed32Size
  split
  · rfl
  · rw [List.length_cons, length_littleEndian, Nat.add_comm]

@[simp] theorem length_writeFixed64 (tag : Nat) (v : UInt64) :
    (writeFixed64 tag v).length = fixed64Size v := by
  unfold writeFixed64 fixed64Size
  split
  · rfl
  · rw [List.length_cons, length_littleEndian, Nat.add_comm]

@[simp] theorem length_writeInt32 (tag : Nat) (v : Int32) :
    (writeInt32 tag v).length = int32Size v := by
  unfold writeInt32 int32Size
  split
  · rfl
  · rw [List.length_cons, length_varintBytes, Nat.add_comm]

@[simp] theorem length_writeString (tag : Nat) (s : Bytes) :
    (writeString tag s).length = stringSize s := by
  unfold writeString stringSize
  split
  · rfl
  · rw [List.length_cons, List.length_append, length_varintBytes, Nat.add_comm]

@[simp] theorem length_writeMessage (tag : Nat) (body : Bytes) :
    (writeMessage tag body).length = messageSize body.length := by
  rw [writeMessage, messageSize, List.length_cons, List.length_append, length_varintBytes,
    Nat.add_comm]

theorem length_le_stringSize (s : Bytes) : s.length ≤ stringSize s := by
  unfold stringSize
  split
  · rename_i hs
    rw [hs]
    exact le_rfl
  · omega

theorem varintSize_le (k n : Nat) : varintSize k n ≤ k := by
  induction k generalizing n with
  | zero => exact le_rfl
  | succ k ih =>
      rw [varintSize]
      split
      · omega
      · have := ih (n / 128)
        omega

theorem int32Size_le (v : Int32) : int32Size v ≤ 11 := by
  have hsize := varintSize_le 10 (int32Varint v)
  unfold int32Size
  split <;> omega

theorem stringSize_le (s : Bytes) : stringSize s ≤ s.length + 6 := by
  have hsize := varintSize_le 5 s.length
  unfold stringSize
  split <;> omega

theorem messageSize_le (size : Nat) : messageSize size ≤ size + 6 := by
  have hsize := varintSize_le 5 size
  unfold messageSize
  omega

theorem length_lt_of_writeMessage {tag n : Nat} {body : Bytes}
    (h : (writeMessage tag body).length < n) : body.length < n := by
  rw [length_writeMessage, messageSize] at h
  omega

theorem length_writeMessage_pos (tag : Nat) (body : Bytes) : 0 < (writeMessage tag body).length := by
  rw [writeMessage, List.length_cons]
  exact Nat.succ_pos _

/-! ## What is written is parsed -/

theorem readSize_varintBytes {n : Nat} (h : n < 2 ^ 31) (rest : Bytes) :
    readSize (varintBytes 5 n ++ rest) = some (n, rest) := by
  have hn : n < 128 ^ (4 + 1) := by omega
  rw [readSize, readVarint_varintBytes 4 hn, Option.bind_some, if_pos h]

namespace Parses

variable {M S : Type} {fields : List (FieldReader M)} {depth tag : Nat} {msg msg' : M} {rest : Bytes}

theorem nil (msg : M) : Parses fields depth msg [] msg := by
  intro fuel _
  cases fuel <;> rfl

/-- A field whose value is read is followed by the rest of the message. -/
theorem field {f : FieldReader M} {payload : Bytes} {msg₁ : M} (htag : tag < 128)
    (hfind : fields.find? (·.tag = tag) = some f)
    (hread : f.read msg (payload ++ rest) = .next msg₁ rest)
    (hrest : Parses fields depth msg₁ rest msg') :
    Parses fields depth msg (UInt8.ofNat tag :: payload ++ rest) msg' := by
  intro fuel hfuel
  rw [List.cons_append, List.length_cons, List.length_append] at hfuel
  obtain ⟨fuel, rfl⟩ : ∃ k, fuel = k + 1 := ⟨fuel - 1, by omega⟩
  have hbyte := toNat_ofNat_of_lt (show tag < 256 by omega)
  have hreadTag : readTag (UInt8.ofNat tag :: (payload ++ rest)) = some (tag, payload ++ rest) := by
    have hmod : tag % 2 ^ 32 = tag := Nat.mod_eq_of_lt (by omega)
    rw [readTag, readVarint, hbyte, if_pos htag, Option.map_some, hmod]
  rw [List.cons_append, parseFields, hreadTag]
  simp only [hfind, hread]
  exact hrest fuel (by omega)

/-! Each writer has its rule.  The field that is not written must be zero in the
message already. -/

theorem fixed32 {set : M → UInt32 → M} {v : UInt32} (htag : tag < 128)
    (hfind : fields.find? (·.tag = tag) = some (fixed32Field tag set))
    (hzero : v = 0 → set msg v = msg) (hrest : Parses fields depth (set msg v) rest msg') :
    Parses fields depth msg (writeFixed32 tag v ++ rest) msg' := by
  unfold writeFixed32
  split
  · rename_i hv
    rw [← hzero hv]
    exact hrest
  · refine field htag hfind ?_ hrest
    have hvalue := ofLittleEndian_littleEndian (show v.toNat < 256 ^ 4 from v.toNat_lt)
    have htake : (littleEndian 4 v.toNat ++ rest).take 4 = littleEndian 4 v.toNat :=
      List.take_left' (length_littleEndian 4 _)
    have hdrop : (littleEndian 4 v.toNat ++ rest).drop 4 = rest :=
      List.drop_left' (length_littleEndian 4 _)
    have hlong : 4 ≤ (littleEndian 4 v.toNat ++ rest).length := by
      rw [List.length_append, length_littleEndian]
      omega
    simp only [fixed32Field, if_pos hlong, htake, hdrop, hvalue, UInt32.ofNat_toNat]

theorem fixed64 {set : M → UInt64 → M} {v : UInt64} (htag : tag < 128)
    (hfind : fields.find? (·.tag = tag) = some (fixed64Field tag set))
    (hzero : v = 0 → set msg v = msg) (hrest : Parses fields depth (set msg v) rest msg') :
    Parses fields depth msg (writeFixed64 tag v ++ rest) msg' := by
  unfold writeFixed64
  split
  · rename_i hv
    rw [← hzero hv]
    exact hrest
  · refine field htag hfind ?_ hrest
    have hvalue := ofLittleEndian_littleEndian (show v.toNat < 256 ^ 8 from v.toNat_lt)
    have htake : (littleEndian 8 v.toNat ++ rest).take 8 = littleEndian 8 v.toNat :=
      List.take_left' (length_littleEndian 8 _)
    have hdrop : (littleEndian 8 v.toNat ++ rest).drop 8 = rest :=
      List.drop_left' (length_littleEndian 8 _)
    have hlong : 8 ≤ (littleEndian 8 v.toNat ++ rest).length := by
      rw [List.length_append, length_littleEndian]
      omega
    simp only [fixed64Field, if_pos hlong, htake, hdrop, hvalue, UInt64.ofNat_toNat]

theorem int32 {set : M → Int32 → M} {v : Int32} (htag : tag < 128)
    (hfind : fields.find? (·.tag = tag) = some (int32Field tag set))
    (hzero : v = 0 → set msg v = msg) (hrest : Parses fields depth (set msg v) rest msg') :
    Parses fields depth msg (writeInt32 tag v ++ rest) msg' := by
  unfold writeInt32
  split
  · rename_i hv
    rw [← hzero hv]
    exact hrest
  · refine field htag hfind ?_ hrest
    have hlt : int32Varint v < 128 ^ (9 + 1) := (int32Varint_lt v).trans (by decide)
    simp only [int32Field, readVarint_varintBytes 9 hlt, ofNat_int32Varint]

theorem string {set : M → Bytes → M} {s : Bytes} (htag : tag < 128)
    (hfind : fields.find? (·.tag = tag) = some (stringField tag set))
    (hsize : s.length < 2 ^ 31) (hutf : validUtf8 s = true)
    (hzero : s = [] → set msg s = msg) (hrest : Parses fields depth (set msg s) rest msg') :
    Parses fields depth msg (writeString tag s ++ rest) msg' := by
  unfold writeString
  split
  · rename_i hs
    rw [← hzero hs]
    exact hrest
  · refine field htag hfind ?_ hrest
    have hlong : s.length ≤ (s ++ rest).length := by simp
    simp only [stringField, List.append_assoc, readSize_varintBytes hsize, if_pos hlong,
      List.take_left, List.drop_left, if_pos hutf]

theorem message {get : M → S} {set : M → S → M} {parse : S → Bytes → S × Bool}
    {body : Bytes} {inner : S} (htag : tag < 128)
    (hfind : fields.find? (·.tag = tag) = some (messageField tag get set parse))
    (hsize : body.length < 2 ^ 31) (hparse : parse (get msg) body = (inner, true))
    (hrest : Parses fields depth (set msg inner) rest msg') :
    Parses fields depth msg (writeMessage tag body ++ rest) msg' := by
  refine field htag hfind ?_ hrest
  have hlong : body.length ≤ (body ++ rest).length := by simp
  simp only [messageField, List.append_assoc, readSize_varintBytes hsize, List.take_left,
    List.drop_left, hparse, hlong, and_self, if_true]

end Parses

end AppChat.Foundation.ProtoWire
